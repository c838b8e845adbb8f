import DexForge.Digest.Crc32
import DexForge.Layout.Image
import DexForge.Synthesis.ProxyClass

/-! # Synthesis of containers -/
set_option autoImplicit false

namespace DexForge

structure Synthesized where
  bytes : Bytes

namespace Synthesized

def fingerprint (s : Synthesized) : UInt32 := Crc32.digest s.bytes.toList

def inspect (s : Synthesized) : String :=
  "Synthesized \x7b len: " ++ toString s.bytes.size ++ ", fingerprint: " ++
    Digits.hex 8 s.fingerprint.toNat ++ " \x7d"

end Synthesized

namespace HandlerBinding

def synthesize (binding : HandlerBinding) (d : ClassDescription) :
    Except SynthesisError Synthesized :=
  match (ProxyClass.build binding d).run .empty with
  | (.error e, _) => .error e
  | (.ok definition, pools) => do
    return ⟨← Image.write (← pools.finish) [definition]⟩

/-- A container with the proxy classes of several descriptions, which share their pools. The first
class that fails, in the order of the descriptions, fails the batch. -/
def synthesizeBatch (binding : HandlerBinding) (ds : List ClassDescription) :
    Except SynthesisError Synthesized := do
  let (results, pools) := Script.runAll (ds.map (ProxyClass.build binding)) .empty
  let definitions ← results.mapM id
  return ⟨← Image.write (← pools.finish) definitions⟩

end HandlerBinding

end DexForge
