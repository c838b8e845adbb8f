import DexForge.Access
import DexForge.Bytes.LittleEndian
import DexForge.Bytes.Mutf8
import DexForge.Bytes.Uleb128
import DexForge.Cli.Execution
import DexForge.Cli.FileTree
import DexForge.Cli.Grammar
import DexForge.Cli.Invocation
import DexForge.Container.Basic
import DexForge.Container.Encoding
import DexForge.Container.Error
import DexForge.Container.Header
import DexForge.Container.Listing
import DexForge.Container.Loader
import DexForge.Container.MapItem
import DexForge.Container.Seal
import DexForge.Container.TableName
import DexForge.Container.Verify
import DexForge.Description.Basic
import DexForge.Description.Json
import DexForge.Description.Specs
import DexForge.Descriptor.ClassName
import DexForge.Descriptor.Primitive
import DexForge.Descriptor.ProtoDescriptor
import DexForge.Descriptor.TypeDescriptor
import DexForge.Digest.Adler32
import DexForge.Digest.Crc32
import DexForge.Digest.Sha1
import DexForge.Instruction.Basic
import DexForge.Instruction.Codec
import DexForge.Instruction.Text
import DexForge.Json.Number
import DexForge.Json.Reader
import DexForge.Json.Token
import DexForge.Json.Value
import DexForge.Layout.ClassOrder
import DexForge.Layout.DataRegion
import DexForge.Layout.Image
import DexForge.Layout.LinkedClass
import DexForge.Main
import DexForge.Name
import DexForge.Palette
import DexForge.Pool.Basic
import DexForge.Pool.Catalog
import DexForge.Pool.Ranked
import DexForge.Pool.Script
import DexForge.Pool.Slot
import DexForge.Pool.Tables
import DexForge.Pool.View
import DexForge.Proxy.ClassDefinition
import DexForge.Proxy.Delegation
import DexForge.Proxy.HandlerBinding
import DexForge.Proxy.Lowering
import DexForge.Proxy.MethodSpec
import DexForge.Proxy.Operation
import DexForge.Synthesis.Basic
import DexForge.Synthesis.Error
import DexForge.Synthesis.ProxyClass
import DexForge.Text.Digits
import DexForge.Text.Escaped
import DexForge.Text.Quoted
import DexForge.Text.Utf16
import DexForge.Proofs.Bytes.Position
import DexForge.Proofs.Bytes.Uleb128
import DexForge.Proofs.Bytes.Mutf8
import DexForge.Proofs.Cli.Execution
import DexForge.Proofs.Container.Corruption
import DexForge.Proofs.Container.Disassembly
import DexForge.Proofs.Container.Extent
import DexForge.Proofs.Container.Header
import DexForge.Proofs.Container.Listing
import DexForge.Proofs.Container.Loading
import DexForge.Proofs.Container.Sealing
import DexForge.Proofs.Container.Tiling
import DexForge.Proofs.Container.Verification
import DexForge.Proofs.Description.Json
import DexForge.Proofs.Descriptor.Offsets
import DexForge.Proofs.Digest.Adler32
import DexForge.Proofs.Instruction.Decoding
import DexForge.Proofs.Layout.Congruence
import DexForge.Proofs.Layout.Hierarchy
import DexForge.Proofs.Layout.Room
import DexForge.Proofs.Layout.SameClass
import DexForge.Proofs.Layout.Soundness
import DexForge.Proofs.Layout.Verification
import DexForge.Proofs.Layout.WellLaid
import DexForge.Proofs.Machine.Basic
import DexForge.Proofs.Machine.Delegation
import DexForge.Proofs.Pool.ContentOrder
import DexForge.Proofs.Pool.Permutation
import DexForge.Proofs.Pool.Schedule
import DexForge.Proofs.Proxy.Discipline
import DexForge.Proofs.Proxy.Narrowest
import DexForge.Proofs.Proxy.RangeCalls
import DexForge.Proofs.Synthesis.Acceptance
import DexForge.Proofs.Synthesis.Batches
import DexForge.Proofs.Synthesis.Delegation
import DexForge.Proofs.Synthesis.Scheduling
import DexForge.Proofs.Synthesis.Signatures
import DexForge.Proofs.Synthesis.ReadBack
import DexForge.Proofs.Text.CodePointOrder
