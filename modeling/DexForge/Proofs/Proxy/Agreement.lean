import DexForge.Proofs.Pool.Recipe
import DexForge.Proxy.ClassDefinition

/-! # Bodies that agree

Two operations agree when they differ only in how they refer to entries. Interning gives a body that
agrees with the one that was asked for.
-/
set_option autoImplicit false

namespace DexForge

variable {ρ σ τ : TableName → Type}

namespace Operation

/-- The same operation on entries that are related by `R`. -/
inductive Agrees (R : ∀ t, ρ t → σ t → Prop) : Operation ρ → Operation σ → Prop where
  | returnVoid : Agrees R .returnVoid .returnVoid
  | returnValue (reg : UInt8) : Agrees R (.returnValue reg) (.returnValue reg)
  | returnWide (reg : UInt8) : Agrees R (.returnWide reg) (.returnWide reg)
  | returnObject (reg : UInt8) : Agrees R (.returnObject reg) (.returnObject reg)
  | moveResult (dst : UInt8) : Agrees R (.moveResult dst) (.moveResult dst)
  | moveResultWide (dst : UInt8) : Agrees R (.moveResultWide dst) (.moveResultWide dst)
  | moveResultObject (dst : UInt8) : Agrees R (.moveResultObject dst) (.moveResultObject dst)
  | moveObject (dst : UInt8) (src : UInt16) : Agrees R (.moveObject dst src) (.moveObject dst src)
  | const (dst : UInt8) (value : Int32) : Agrees R (.const dst value) (.const dst value)
  | constString {dst : UInt8} {x : ρ .string} {y : σ .string} (h : R .string x y) :
      Agrees R (.constString dst x) (.constString dst y)
  | checkCast {reg : UInt8} {x : ρ .type} {y : σ .type} (h : R .type x y) :
      Agrees R (.checkCast reg x) (.checkCast reg y)
  | newArray {dst size : UInt8} {x : ρ .type} {y : σ .type} (h : R .type x y) :
      Agrees R (.newArray dst size x) (.newArray dst size y)
  | agetObject (dst array index : UInt8) :
      Agrees R (.agetObject dst array index) (.agetObject dst array index)
  | aputObject (src array index : UInt8) :
      Agrees R (.aputObject src array index) (.aputObject src array index)
  | igetObject {dst object : UInt8} {x : ρ .field} {y : σ .field} (h : R .field x y) :
      Agrees R (.igetObject dst object x) (.igetObject dst object y)
  | iputObject {src object : UInt8} {x : ρ .field} {y : σ .field} (h : R .field x y) :
      Agrees R (.iputObject src object x) (.iputObject src object y)
  | sgetObject {dst : UInt8} {x : ρ .field} {y : σ .field} (h : R .field x y) :
      Agrees R (.sgetObject dst x) (.sgetObject dst y)
  | invoke {kind : InvokeKind} {x : ρ .method} {y : σ .method} {args : List UInt16}
      (h : R .method x y) : Agrees R (.invoke kind x args) (.invoke kind y args)

theorem Agrees.imp {R S : ∀ t, ρ t → σ t → Prop} {a : Operation ρ} {b : Operation σ}
    (h : a.Agrees R b) (hImp : ∀ t x y, R t x y → S t x y) : a.Agrees S b := by
  cases h <;> constructor
  all_goals exact hImp _ _ _ ‹_›

theorem Agrees.join {R : ∀ t, ρ t → τ t → Prop} {S : ∀ t, σ t → τ t → Prop}
    {Q : ∀ t, ρ t → σ t → Prop} {a : Operation ρ} {b : Operation σ} {c : Operation τ}
    (h : a.Agrees R c) (h' : b.Agrees S c)
    (hJoin : ∀ t x y z, R t x z → S t y z → Q t x y) : a.Agrees Q b := by
  cases h <;> cases h' <;> constructor
  all_goals exact hJoin _ _ _ _ ‹_› ‹_›

def map (f : ∀ {t}, ρ t → σ t) : Operation ρ → Operation σ
  | returnVoid => .returnVoid
  | returnValue reg => .returnValue reg
  | returnWide reg => .returnWide reg
  | returnObject reg => .returnObject reg
  | moveResult dst => .moveResult dst
  | moveResultWide dst => .moveResultWide dst
  | moveResultObject dst => .moveResultObject dst
  | moveObject dst src => .moveObject dst src
  | const dst value => .const dst value
  | constString dst x => .constString dst (f x)
  | checkCast reg x => .checkCast reg (f x)
  | newArray dst size x => .newArray dst size (f x)
  | agetObject dst array index => .agetObject dst array index
  | aputObject src array index => .aputObject src array index
  | igetObject dst object x => .igetObject dst object (f x)
  | iputObject src object x => .iputObject src object (f x)
  | sgetObject dst x => .sgetObject dst (f x)
  | invoke kind x args => .invoke kind (f x) args

theorem Agrees.map {R : ∀ t, ρ t → σ t → Prop} {S : ∀ t, ρ t → τ t → Prop} {f : ∀ {t}, σ t → τ t}
    {a : Operation ρ} {b : Operation σ} (h : a.Agrees R b)
    (hMap : ∀ t x y, R t x y → S t x (f y)) : a.Agrees S (b.map f) := by
  cases h <;> constructor
  all_goals exact hMap _ _ _ ‹_›

def reference? : Operation ρ → Option ((t : TableName) × ρ t)
  | constString _ x => some ⟨_, x⟩
  | checkCast _ x | newArray _ _ x => some ⟨_, x⟩
  | igetObject _ _ x | iputObject _ _ x | sgetObject _ x => some ⟨_, x⟩
  | invoke _ x _ => some ⟨_, x⟩
  | _ => none

theorem Agrees.exists_related {R : ∀ t, ρ t → σ t → Prop} {a : Operation ρ} {b : Operation σ}
    (h : a.Agrees R b) {t : TableName} {x : ρ t} (hx : a.reference? = some ⟨t, x⟩) :
    ∃ y, R t x y := by
  cases h with
  | constString h | checkCast h | newArray h | igetObject h | iputObject h | sgetObject h
  | invoke h =>
    cases hx
    exact ⟨_, h⟩
  | _ => cases hx

def recipe (op : Operation Request) : Recipe Unit :=
  match op.reference? with
  | none => pure ()
  | some ⟨_, r⟩ => Recipe.request r

theorem fails_recipe (op : Operation Request) :
    Except.Fails SynthesisError.LongText op.recipe.outcome := by
  unfold recipe
  split
  · exact Except.fails_ok
  · exact Recipe.fails_request _

/-- The operation on slots does what the operation on requests asks for. -/
abbrev Denotes (p : Pools) : Operation Slot → Operation Request → Prop :=
  Agrees fun _ => Script.Denotes p

theorem Denotes.mono {p p' : Pools} {a : Operation Slot} {op : Operation Request}
    (h : a.Denotes p op) (hExtends : p.Extends p') : a.Denotes p' op :=
  h.imp fun _ _ _ hSlot => hSlot.mono hExtends

theorem follows_intern {p : Pools} (hp : p.WellFormed) (op : Operation Request) :
    op.intern.Follows (fun p' a _ => a.Denotes p' op) p op.recipe := by
  cases op
  -- an operation that refers to an entry asks for it and nothing else
  case constString | checkCast | newArray | igetObject | iputObject | sgetObject | invoke =>
    refine (Script.follows_request _).map hp ?_
    intro p' slot _ _ _ hSlot
    constructor
    exact hSlot
  all_goals exact Script.follows_pure (by constructor)

end Operation

namespace MethodBody

structure Agrees (R : ∀ t, ρ t → σ t → Prop) (a : MethodBody ρ) (b : MethodBody σ) : Prop where
  spec : a.spec = b.spec
  method : R .method a.method b.method
  registers : a.registers = b.registers
  ins : a.ins = b.ins
  outs : a.outs = b.outs
  code : List.Forall₂ (Operation.Agrees R) a.code b.code

theorem Agrees.imp {R S : ∀ t, ρ t → σ t → Prop} {a : MethodBody ρ} {b : MethodBody σ}
    (h : a.Agrees R b) (hImp : ∀ t x y, R t x y → S t x y) : a.Agrees S b :=
  ⟨h.spec, hImp _ _ _ h.method, h.registers, h.ins, h.outs,
   h.code.imp fun _ _ hOp => hOp.imp hImp⟩

theorem Agrees.join {R : ∀ t, ρ t → τ t → Prop} {S : ∀ t, σ t → τ t → Prop}
    {Q : ∀ t, ρ t → σ t → Prop} {a : MethodBody ρ} {b : MethodBody σ} {c : MethodBody τ}
    (h : a.Agrees R c) (h' : b.Agrees S c)
    (hJoin : ∀ t x y z, R t x z → S t y z → Q t x y) : a.Agrees Q b :=
  ⟨h.spec.trans h'.spec.symm, hJoin _ _ _ _ h.method h'.method, h.registers.trans h'.registers.symm,
   h.ins.trans h'.ins.symm, h.outs.trans h'.outs.symm,
   Pairing.comp h.code h'.code.flip fun _ _ _ hOp hOp' => hOp.join hOp' hJoin⟩

def recipe (body : MethodBody Request) : Recipe Unit := do
  body.code.forM Operation.recipe
  Recipe.request body.method

theorem fails_recipe (body : MethodBody Request) :
    Except.Fails SynthesisError.LongText body.recipe.outcome := by
  rw [recipe, Recipe.outcome_bind, Recipe.outcome_forM]
  exact (Except.fails_forM fun op _ => op.fails_recipe).bind fun _ _ =>
    Recipe.fails_request body.method

abbrev Denotes (p : Pools) : MethodBody Slot → MethodBody Request → Prop :=
  Agrees fun _ => Script.Denotes p

theorem Denotes.mono {p p' : Pools} {a : MethodBody Slot} {body : MethodBody Request}
    (h : a.Denotes p body) (hExtends : p.Extends p') : a.Denotes p' body :=
  h.imp fun _ _ _ hSlot => hSlot.mono hExtends

theorem follows_intern {p : Pools} (hp : p.WellFormed) (body : MethodBody Request) :
    body.intern.Follows (fun p' a _ => a.Denotes p' body) p body.recipe := by
  refine (Script.follows_mapM (Q := fun op p' a => Operation.Denotes p' a op)
    (fun hExtends hOp => hOp.mono hExtends) hp fun op _ _ hp' => op.follows_intern hp').bind hp ?_
  intro p₁ code _ h₁ hp₁ hCode
  refine (Script.follows_request _).map hp₁ ?_
  intro p₂ method _ h₂ hp₂ hMethod
  exact ⟨rfl, hMethod, rfl, rfl, rfl, hCode.flip.imp fun _ _ hOp => Operation.Denotes.mono hOp h₂⟩

end MethodBody

theorem Delegation.follows_encode {p : Pools} (hp : p.WellFormed) (ctx : Context)
    (spec : MethodSpec) (ordinal : Nat) :
    (encode ctx spec ordinal).Follows
      (fun p' a _ => ∃ requested, body ctx spec ordinal = .ok requested ∧ a.Denotes p' requested) p
      (Recipe.ofExcept (body ctx spec ordinal) >>= MethodBody.recipe) := by
  refine Script.follows_ofExcept.bind hp ?_
  rintro p' requested _ - hp' ⟨rfl, hBody⟩
  exact (requested.follows_intern hp').imp hp' fun _ _ _ _ _ hDenotes =>
    ⟨requested, hBody, hDenotes⟩

structure ClassDefinition.Agrees (R : ∀ t, Slot t → Slot t → Prop) (c c' : ClassDefinition) :
    Prop where
  descriptor : c.descriptor = c'.descriptor
  type : R .type c.type c'.type
  access : c.access = c'.access
  superclass : List.Forall₂ (R .type) c.superclass.toList c'.superclass.toList
  interfaces : List.Forall₂ (R .type) c.interfaces c'.interfaces
  sourceFile : List.Forall₂ (R .string) c.sourceFile.toList c'.sourceFile.toList
  staticFields : List.Forall₂ (fun f f' => R .field f.field f'.field ∧ f.access = f'.access)
    c.staticFields c'.staticFields
  instanceFields : List.Forall₂ (fun f f' => R .field f.field f'.field ∧ f.access = f'.access)
    c.instanceFields c'.instanceFields
  directMethods : List.Forall₂ (fun m m' => m.access = m'.access ∧ m.body.Agrees R m'.body)
    c.directMethods c'.directMethods
  virtualMethods : List.Forall₂ (fun m m' => m.access = m'.access ∧ m.body.Agrees R m'.body)
    c.virtualMethods c'.virtualMethods

theorem ClassDefinition.Agrees.imp {R S : ∀ t, Slot t → Slot t → Prop} {c c' : ClassDefinition}
    (h : c.Agrees R c') (hImp : ∀ t x y, R t x y → S t x y) : c.Agrees S c' where
  descriptor := h.descriptor
  type := hImp _ _ _ h.type
  access := h.access
  superclass := h.superclass.imp (hImp _)
  interfaces := h.interfaces.imp (hImp _)
  sourceFile := h.sourceFile.imp (hImp _)
  staticFields := h.staticFields.imp fun _ _ hf => ⟨hImp _ _ _ hf.1, hf.2⟩
  instanceFields := h.instanceFields.imp fun _ _ hf => ⟨hImp _ _ _ hf.1, hf.2⟩
  directMethods := h.directMethods.imp fun _ _ hm => ⟨hm.1, hm.2.imp hImp⟩
  virtualMethods := h.virtualMethods.imp fun _ _ hm => ⟨hm.1, hm.2.imp hImp⟩

end DexForge
