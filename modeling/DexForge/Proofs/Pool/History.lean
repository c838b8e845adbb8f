import DexForge.Proofs.Pool.Counting
import DexForge.Proofs.Pool.Interning
import DexForge.Proofs.Pool.Narrowing
import Mathlib.Algebra.Order.BigOperators.Group.List
import Mathlib.Algebra.Order.Group.Nat

/-! # Pools after any sequence of calls

Calls may ask for entries of any table and may fail half way. After any of them the pools hold every
entry once and refer only to entries that are there, and a slot that was given out keeps its meaning
up to the finished tables.
-/
set_option autoImplicit false

namespace DexForge

namespace Interning

variable {α β : Type} {p : Pools}

def Settled (p : Pools) (m : Interning α) (a : α) : Prop := m.run p = (.ok a, p)

theorem Settled.bind {m : Interning α} {f : α → Interning β} {a : α} {b : β} (h : Settled p m a)
    (hNext : Settled p (f a) b) : Settled p (m >>= f) b := by
  have hOk : (m.run p).1 = .ok a := by rw [h]
  rw [Settled, run_bind_of_ok hOk, h]
  exact hNext

theorem settled_mapM {γ : Type} {g : γ → Interning α} {xs : List γ} {as : List α}
    (h : List.Forall₂ (fun x a => Settled p (g x) a) xs as) : Settled p (xs.mapM g) as := by
  induction h with
  | nil => rfl
  | cons hHead _ ih =>
    rw [List.mapM_cons]
    exact hHead.bind (ih.bind rfl)

theorem settled_add {t : TableName} {entry : Entry t} {slot : Slot t}
    (h : p.entryAt? slot = some entry) : Settled p (modifyGet (Pools.add entry)) slot := by
  have hRun : (modifyGet (Pools.add entry) : Interning (Slot t)).run p =
      (.ok (Pools.add entry p).1, (Pools.add entry p).2) := rfl
  rw [Settled, hRun, Pools.add_of_entryAt? h]

theorem settled_string {slot : Slot .string} {text : String} (h : p.stringText? slot = some text) :
    Settled p (string text) slot := by
  have hFind : p.strings.find? text = some slot.position :=
    (p.strings.find?_eq_some_iff text slot.position).mpr h
  have hAdd : Pools.addString text p = (.ok slot, p) := by
    simp only [Pools.addString, hFind]
  exact hAdd

theorem settled_type {slot : Slot .type} {text : String} (h : p.typeText? slot = some text) :
    Settled p (type text) slot := by
  obtain ⟨name, hName, hText⟩ := (Pools.contents?_eq_some_iff (t := .type)).mp h
  exact (settled_string hText).bind (settled_add hName)

theorem settled_proto {slot : Slot .proto} {descriptor : ProtoDescriptor}
    (h : p.protoTexts? slot = some descriptor.texts) : Settled p (proto descriptor) slot := by
  obtain ⟨key, hKey, hTexts⟩ := (Pools.contents?_eq_some_iff (t := .proto)).mp h
  obtain ⟨hShorty, hReturns, hParams⟩ := Pools.keyTexts?_eq_some_iff.mp hTexts
  have hTypes : List.Forall₂ (fun param slot => Settled p (type (TypeDescriptor.text param)) slot)
      descriptor.params key.params := by
    rw [ProtoDescriptor.texts, List.forall₂_map_right_iff] at hParams
    exact hParams.flip.imp fun _ _ => settled_type
  exact (settled_string hShorty).bind
    ((settled_type hReturns).bind ((settled_mapM hTypes).bind (settled_add hKey)))

theorem settled_memberKey {t : TableName} {owner name : String} {descriptor : Interning (Slot t)}
    {α : Type} {descriptor? : Slot t → Option α} {x : α} {key : MemberKey t}
    (hDescriptor : ∀ {slot}, descriptor? slot = some x → Settled p descriptor slot)
    (h : p.memberTexts? descriptor? key = some ⟨owner, name, x⟩) :
    Settled p (memberKey owner name descriptor) key := by
  obtain ⟨hOwner, hName, hText⟩ := Pools.memberTexts?_eq_some_iff.mp h
  exact (settled_type hOwner).bind
    ((settled_string hName).bind ((hDescriptor hText).bind rfl))

end Interning

theorem Request.settled_intern {p : Pools} {t : TableName} {r : Request t} {slot : Slot t}
    (h : p.contents? slot = some r.contents) : Interning.Settled p r.intern slot := by
  cases r with
  | string text => exact Interning.settled_string h
  | type descriptor => exact Interning.settled_type h
  | proto descriptor => exact Interning.settled_proto h
  | field owner name fieldType =>
    obtain ⟨key, hKey, hTexts⟩ := (Pools.contents?_eq_some_iff (t := .field)).mp h
    exact (Interning.settled_memberKey Interning.settled_type hTexts).bind
      (Interning.settled_add hKey)
  | method owner name descriptor =>
    obtain ⟨key, hKey, hTexts⟩ := (Pools.contents?_eq_some_iff (t := .method)).mp h
    exact (Interning.settled_memberKey Interning.settled_proto hTexts).bind
      (Interning.settled_add hKey)

abbrev Call := (t : TableName) × Request t

namespace Pools

variable {p : Pools} {calls : List Call}

/-- The pools that a call leaves behind, whether it fails or not. -/
def call (p : Pools) (c : Call) : Pools := (c.2.intern.run p).2

def after (calls : List Call) : Pools := calls.foldl call empty

def Returned (calls : List Call) {t : TableName} (r : Request t) (slot : Slot t) : Prop :=
  ∃ earlier later, calls = earlier ++ ⟨t, r⟩ :: later ∧
    (r.intern.run (after earlier)).1 = .ok slot

theorem wellFormed_foldl (hp : p.WellFormed) : (calls.foldl call p).WellFormed := by
  induction calls generalizing p with
  | nil => exact hp
  | cons c calls ih => exact ih (c.2.interns_intern hp).wellFormed

theorem extends_foldl (hp : p.WellFormed) : p.Extends (calls.foldl call p) := by
  induction calls generalizing p with
  | nil => exact .refl p
  | cons c calls ih =>
    have hCall := c.2.interns_intern hp
    exact hCall.extended.trans (ih hCall.wellFormed)

theorem holds_foldl (hp : p.WellFormed) (item : Item) : (calls.foldl call p).Holds item ↔
    p.Holds item ∨ item ∈ calls.flatMap fun c => collected c.2.parts := by
  induction calls generalizing p with
  | nil => simp
  | cons c calls ih =>
    have hCall := c.2.interns_intern hp
    have hRest := ih hCall.wellFormed
    rw [hCall.holds, or_assoc, ← List.mem_append] at hRest
    exact hRest

theorem wellFormed_after (calls : List Call) : (after calls).WellFormed :=
  wellFormed_foldl wellFormed_empty

theorem holds_after (calls : List Call) (item : Item) :
    (after calls).Holds item ↔ item ∈ calls.flatMap fun c => collected c.2.parts := by
  rw [after, holds_foldl wellFormed_empty, or_iff_right (not_holds_empty item)]

theorem size_after_le (calls : List Call) (t : TableName) :
    (after calls).size t ≤ (calls.flatMap fun c => c.2.parts).length := by
  rw [(wellFormed_after calls).size_eq_tally (holds_after calls)]
  refine Nat.le_trans (tally_le _ t) ?_
  simp only [List.length_flatMap]
  exact List.sum_le_sum fun c _ => (List.takeWhile_sublist _).length_le

/-- A slot that was given out keeps denoting what was asked for. -/
theorem Returned.contents? {t : TableName} {r : Request t} {slot : Slot t}
    (h : Returned calls r slot) : (after calls).contents? slot = some r.contents := by
  obtain ⟨earlier, later, rfl, hOk⟩ := h
  have hCall := r.interns_intern (wellFormed_after earlier)
  obtain ⟨slot', hOk', hContents⟩ := hCall.success (hCall.fault?_eq_none hOk)
  rw [hOk', Except.ok.injEq] at hOk
  rw [hOk] at hContents
  have hAfter : after (earlier ++ ⟨t, r⟩ :: later) =
      later.foldl call (r.intern.run (after earlier)).2 := by
    rw [after, List.foldl_append, List.foldl_cons]
    rfl
  rw [hAfter]
  exact (extends_foldl hCall.wellFormed).contents? hContents

structure Distinct (p : Pools) : Prop where
  strings : p.strings.entries.toList.Nodup
  types : p.types.entries.toList.Nodup
  protos : p.protos.entries.toList.Nodup
  fields : p.fields.entries.toList.Nodup
  methods : p.methods.entries.toList.Nodup

theorem distinct (p : Pools) : p.Distinct :=
  ⟨p.strings.nodup, p.types.nodup, p.protos.nodup, p.fields.nodup, p.methods.nodup⟩

def Covers (p : Pools) {t : TableName} (slot : Slot t) : Prop := slot.position < p.size t

structure Closed (p : Pools) : Prop where
  types : ∀ name ∈ p.types.entries, p.Covers name
  protos : ∀ key ∈ p.protos.entries,
    p.Covers key.shorty ∧ p.Covers key.returns ∧ ∀ param ∈ key.params, p.Covers param
  fields : ∀ key ∈ p.fields.entries,
    p.Covers key.owner ∧ p.Covers key.name ∧ p.Covers key.descriptor
  methods : ∀ key ∈ p.methods.entries,
    p.Covers key.owner ∧ p.Covers key.name ∧ p.Covers key.descriptor

theorem covers_of_contents? {t : TableName} {slot : Slot t} {x : Contents t}
    (h : p.contents? slot = some x) : p.Covers slot := lt_size_of_contents? h

theorem covers_of_memberTexts? {t : TableName} {α : Type} {descriptor? : Slot t → Option α}
    {key : MemberKey t} {texts : MemberTexts α}
    (hCovers : ∀ {slot x}, descriptor? slot = some x → p.Covers slot)
    (h : p.memberTexts? descriptor? key = some texts) :
    p.Covers key.owner ∧ p.Covers key.name ∧ p.Covers key.descriptor := by
  obtain ⟨hOwner, hName, hDescriptor⟩ := memberTexts?_eq_some_iff.mp h
  exact ⟨covers_of_contents? (t := .type) hOwner, covers_of_contents? (t := .string) hName,
    hCovers hDescriptor⟩

theorem WellFormed.closed (hp : p.WellFormed) : p.Closed where
  types name hName := by
    obtain ⟨text, hText⟩ := hp.exists_resolve? (t := .type) (Array.mem_toList_iff.mpr hName)
    exact covers_of_contents? (t := .string) hText
  protos key hKey := by
    obtain ⟨texts, hTexts⟩ := hp.exists_resolve? (t := .proto) (Array.mem_toList_iff.mpr hKey)
    obtain ⟨hShorty, hReturns, hParams⟩ := keyTexts?_eq_some_iff.mp hTexts
    refine ⟨covers_of_contents? (t := .string) hShorty, covers_of_contents? (t := .type) hReturns, ?_⟩
    intro param hParam
    obtain ⟨text, -, hText⟩ := Pairing.exists_of_mem_left hParams hParam
    exact covers_of_contents? (t := .type) hText
  fields key hKey := by
    obtain ⟨texts, hTexts⟩ := hp.exists_resolve? (t := .field) (Array.mem_toList_iff.mpr hKey)
    exact covers_of_memberTexts? (covers_of_contents? (t := .type)) hTexts
  methods key hKey := by
    obtain ⟨texts, hTexts⟩ := hp.exists_resolve? (t := .method) (Array.mem_toList_iff.mpr hKey)
    exact covers_of_memberTexts? (covers_of_contents? (t := .proto)) hTexts

theorem WellFormed.exists_finish_iff (hp : p.WellFormed) :
    (∃ tables, p.finish = .ok tables) ↔ p.size .type ≤ maxIndexed ∧ p.size .proto ≤ maxIndexed ∧
      p.size .field ≤ maxIndexed ∧ p.size .method ≤ maxIndexed := by
  obtain ⟨r, hRanking⟩ := hp.exists_ranking
  rw [← checkSizes_eq_ok_iff (u := ()), finish_eq, hRanking]
  cases p.checkSizes <;> simp

/-- The finished tables are those of the pools in order: every position of a pool has its place, and
its index is that place, not cut off. -/
structure FinishedAs (p : Pools) (tables : Tables) : Prop where
  ascending : tables.Ascending
  bijective : ∀ t, (tables.rank t).toList.Perm (List.range (p.size t))
  untruncated : ∀ {t : TableName} (slot : Slot t) (j : Nat),
    (tables.rank t)[slot.position]? = some j → ∃ i, tables.index slot = .ok i ∧ i.toNat = j

theorem exists_fits {tables : Tables} (h : p.finish = .ok tables)
    (hStrings : p.size .string ≤ 0x100000000) :
    ∃ r : Ranking, r.Orders p ∧ tables = r.narrow ∧ r.Fits := by
  obtain ⟨r, hOrders, rfl, hSizes⟩ := finish_eq_ok h
  refine ⟨r, hOrders, rfl, size_le_capacity hOrders hSizes ?_⟩
  exact Nat.le_trans (Nat.le_of_eq (hOrders.size_eq .string)) hStrings

theorem WellFormed.finishedAs (hp : p.WellFormed) {r : Ranking} (hOrders : r.Orders p)
    (hFits : r.Fits) : p.FinishedAs r.narrow where
  ascending := hOrders.ascending hp hFits
  bijective := hOrders.rank_perm
  untruncated {t} slot j hj := by
    have hPlace : r.place? slot = some j := by rwa [Ranking.rank_narrow] at hj
    have hIndex : (UInt32.ofNat j).toNat = j :=
      Ranking.toNat_ofNat (Nat.lt_of_lt_of_le (hOrders.lt_size_of_place hPlace) (hFits t))
    refine ⟨UInt32.ofNat j, (hOrders.index_eq_ok_iff hFits).mpr ?_, hIndex⟩
    rw [hIndex, hPlace]

/-- Whatever was called, and whether it failed or not, the pools stay in order and finish exactly
when four of them are not too large; what was given out keeps its meaning to the end. -/
theorem meaning_after (calls : List Call) (hSmall : ∀ t, (after calls).size t < 0x100000000) :
    (after calls).Distinct ∧ (after calls).Closed ∧
    (∀ {t : TableName} (r : Request t) (slot : Slot t), Returned calls r slot →
      (after calls).contents? slot = some r.contents ∧
      r.intern.run (after calls) = (.ok slot, after calls)) ∧
    ((∃ tables, (after calls).finish = .ok tables) ↔
      (after calls).size .type ≤ 65536 ∧ (after calls).size .proto ≤ 65536 ∧
      (after calls).size .field ≤ 65536 ∧ (after calls).size .method ≤ 65536) ∧
    ∀ tables, (after calls).finish = .ok tables →
      (after calls).FinishedAs tables ∧
      ∀ {t : TableName} (r : Request t) (slot : Slot t), Returned calls r slot →
        ∃ i, tables.index slot = .ok i ∧ tables.contents? t i = some r.contents := by
  have hp := wellFormed_after calls
  refine ⟨distinct _, hp.closed, ?_, hp.exists_finish_iff, ?_⟩
  · intro t r slot hReturned
    exact ⟨hReturned.contents?, Request.settled_intern hReturned.contents?⟩
  · intro tables hFinish
    obtain ⟨r, hOrders, rfl, hFits⟩ := exists_fits hFinish (Nat.le_of_lt (hSmall .string))
    refine ⟨hp.finishedAs hOrders hFits, ?_⟩
    intro t request slot hReturned
    exact hOrders.exists_index hp hFits hReturned.contents?

/-- A field, and then a text that is too long to be collected. -/
def fieldCalls : List Call :=
  [⟨.field, .field "LA;" "x" "I"⟩, ⟨.string, .string (String.ofList (List.replicate 65536 'x'))⟩]

theorem meaning_after_fieldCalls : ∃ (slot : Slot .field) (tables : Tables) (i : UInt32),
    Returned fieldCalls (.field "LA;" "x" "I") slot ∧ (after fieldCalls).finish = .ok tables ∧
      tables.index slot = .ok i ∧ tables.contents? .field i = some ⟨"LA;", "x", "I"⟩ := by
  have hSize : ∀ t, (after fieldCalls).size t ≤ 7 := size_after_le fieldCalls
  have hSmall : ∀ t, (after fieldCalls).size t ≤ 65536 := fun t => Nat.le_trans (hSize t) (by decide)
  obtain ⟨-, -, -, hFinish, hTables⟩ := meaning_after fieldCalls fun t =>
    Nat.lt_of_le_of_lt (hSize t) (by decide)
  obtain ⟨tables, hOk⟩ := hFinish.mpr ⟨hSmall _, hSmall _, hSmall _, hSmall _⟩
  obtain ⟨slot, hSlot, -⟩ := ((Request.field "LA;" "x" "I").interns_intern wellFormed_empty).success
    (by decide)
  have hReturned : Returned fieldCalls (.field "LA;" "x" "I") slot := ⟨[], _, rfl, hSlot⟩
  obtain ⟨i, hIndex, hContents⟩ := (hTables tables hOk).2 _ slot hReturned
  exact ⟨slot, tables, i, hReturned, hOk, hIndex, hContents⟩

end Pools

end DexForge
