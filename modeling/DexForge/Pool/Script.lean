import DexForge.Pool.Basic

/-! # Scripts

A script is a computation that learns about pools only through the slots that its requests get.
Between two requests it does nothing that another script could notice, so several scripts can work
on the same pools in any interleaving of their requests.
-/
set_option autoImplicit false

namespace DexForge

inductive Script (α : Type) where
  | done (result : α)
  | fail (error : SynthesisError)
  | ask {t : TableName} (request : Request t) (next : Slot t → Script α)

namespace Script

variable {α β : Type}

def bind : Script α → (α → Script β) → Script β
  | done a, f => f a
  | fail e, _ => fail e
  | ask request next, f => ask request fun slot => bind (next slot) f

instance : Monad Script where
  pure := done
  bind := bind

def ofExcept : Except SynthesisError α → Script α
  | .ok a => done a
  | .error e => fail e

def request {t : TableName} (r : Request t) : Script (Slot t) := ask r done

def run : Script α → Pools → Except SynthesisError α × Pools
  | done a, pools => (.ok a, pools)
  | fail e, pools => (.error e, pools)
  | ask request next, pools =>
    match request.intern.run pools with
    | (.ok slot, pools) => run (next slot) pools
    | (.error e, pools) => (.error e, pools)

/-- Runs scripts one after the other on the same pools. A failure does not keep the scripts behind
it from running. -/
def runAll : List (Script α) → Pools → List (Except SynthesisError α) × Pools
  | [], pools => ([], pools)
  | script :: rest, pools =>
    let (result, pools) := script.run pools
    let (results, pools) := runAll rest pools
    (result :: results, pools)

theorem bind_done (script : Script α) : script.bind done = script := by
  induction script with
  | done => rfl
  | fail => rfl
  | ask request next ih => simp only [bind, ih]

theorem bind_assoc {γ : Type} (script : Script α) (f : α → Script β) (g : β → Script γ) :
    (script.bind f).bind g = script.bind fun a => (f a).bind g := by
  induction script with
  | done => rfl
  | fail => rfl
  | ask request next ih => simp only [bind, ih]

end Script

end DexForge
